import IpServer.Cache.LeastRecent
import IpServer.Cache.Representation

/-!
# The books of the cache

Every entry ever inserted is still there, or was counted when it was evicted or
found expired; every look-up is a hit or a miss; and the bytes reported are those of
the entries. All of it holds for a shard after every operation (`live_step`,
`lookups_step`), and for the sum of the shards after every run
(`statistics_conserved`).
-/

namespace IpServer

/-- Whether an operation is a `get`. -/
def CacheOp.isGet : CacheOp → Bool
  | .get _ _ => true
  | .put _ _ _ _ => false

namespace CacheShard

variable (lib : JsonLibrary) (s : CacheShard)

/-- The key that an operation inserts: that of a `put` that stores under a key without an entry. -/
def inserted : CacheOp → List String
  | .get _ _ => []
  | .put key result _ _ =>
    if s.cacheMap.lookup key = none ∧ (estimateEntrySize lib key result).toOption.isSome then [key]
    else []

/-- The bytes of an entry: its key, twice, and its value. -/
def entryBytes (key : String) (result : Json) : ℕ :=
  2 * key.length + ((lib.dump result).toOption.map String.length).getD 0

variable {lib s}

/-- The counters of look-ups after an operation. -/
theorem lookups_step (h : s.Inv lib) (op : CacheOp) :
    (step lib s op).2.stats.totalLookups = s.stats.totalLookups + op.isGet.toNat ∧
    (step lib s op).2.stats.hits + (step lib s op).2.stats.misses =
      s.stats.hits + s.stats.misses + op.isGet.toNat ∧
    (step lib s op).2.stats.expiredEntries + s.stats.misses ≤
      s.stats.expiredEntries + (step lib s op).2.stats.misses := by
  cases op with
  | get key now =>
    rw [step, CacheOp.isGet]
    cases he : s.cacheMap.lookup key with
    | none =>
      rw [get_of_none he]
      simp only [Bool.toNat_true, true_and]
      omega
    | some e =>
      by_cases hnow : now - e.timestamp > ttlForType e.dataType
      · rw [get_of_expired he hnow]
        simp only [Bool.toNat_true, true_and]
        omega
      · rw [get_of_live he hnow]
        simp only [Bool.toNat_true, true_and]
        omega
  | put key result dataType now =>
    rw [step, CacheOp.isGet]
    cases hsize : estimateEntrySize lib key result with
    | error x =>
      rw [put_of_error hsize]
      exact ⟨rfl, rfl, le_rfl⟩
    | ok size =>
      cases he : s.cacheMap.lookup key with
      | some e =>
        rw [put_of_some hsize he]
        exact ⟨rfl, rfl, le_rfl⟩
      | none =>
        obtain ⟨-, n, hto, -⟩ := evictIfNeeded_spec size h
        rw [put_of_none hsize he]
        simp only [hto.stats]
        exact ⟨rfl, rfl, le_rfl⟩

/-- Entries come by insertion, and go by eviction or expiry. -/
theorem live_step (h : s.Inv lib) (op : CacheOp) :
    (step lib s op).2.cacheMap.entries.length + (step lib s op).2.stats.evictions +
        (step lib s op).2.stats.expiredEntries =
      s.cacheMap.entries.length + s.stats.evictions + s.stats.expiredEntries +
        (inserted lib s op).length := by
  cases op with
  | get key now =>
    rw [step, inserted]
    cases he : s.cacheMap.lookup key with
    | none =>
      rw [get_of_none he]
      rfl
    | some e =>
      by_cases hnow : now - e.timestamp > ttlForType e.dataType
      · have hlength := Dict.total_of_lookup (fun _ => 1) he
        rw [← Dict.length_eq_total, ← Dict.length_eq_total] at hlength
        rw [get_of_expired he hnow]
        simp only [List.length_nil]
        omega
      · rw [get_of_live he hnow]
        rfl
  | put key result dataType now =>
    rw [step, inserted]
    cases hsize : estimateEntrySize lib key result with
    | error x =>
      rw [put_of_error hsize, if_neg fun h => Bool.false_ne_true h.2]
      rfl
    | ok size =>
      cases he : s.cacheMap.lookup key with
      | some e =>
        -- an entry is replaced: as many are left
        have hlength := Dict.total_of_lookup (fun _ => 1) he
        have hlength' := Dict.total_insert (m := s.cacheMap) (fun _ => 1) key
          (⟨result, now, e.listIt, size, dataType⟩ : CacheEntry)
        rw [← Dict.length_eq_total] at hlength hlength'
        rw [put_of_some hsize he, if_neg fun h => Option.some_ne_none _ h.1]
        simp only [List.length_nil]
        omega
      | none =>
        obtain ⟨hinv', -⟩ := evictIfNeeded_spec size h
        obtain ⟨evicted, hsplit, hcount, -⟩ :=
          evictLoop_suffix size s.cacheList.nodes.length h
        have hnone := lookup_evictIfNeeded h size he
        have hexpired : (s.evictIfNeeded size).stats.expiredEntries = s.stats.expiredEntries := by
          obtain ⟨-, n, hto, -⟩ := evictIfNeeded_spec size h
          rw [hto.stats]
        -- the list loses the evicted keys, and the map as many entries
        have hlive := congrArg List.length hsplit
        rw [List.length_append, h.linked.length_values, ← evictIfNeeded,
          hinv'.linked.length_values] at hlive
        rw [← evictIfNeeded] at hcount
        have hinsert := Dict.total_insert (m := (s.evictIfNeeded size).cacheMap) (fun _ => 1) key
          (⟨result, now, (s.evictIfNeeded size).cacheList.next, size, dataType⟩ : CacheEntry)
        rw [Dict.erase_of_lookup_none hnone, ← Dict.length_eq_total,
          ← Dict.length_eq_total] at hinsert
        rw [put_of_none hsize he, if_pos ⟨rfl, rfl⟩]
        simp only [List.length_singleton]
        omega

/-- The counter of a shard is the sum of the bytes of its entries. -/
theorem Inv.usage_eq_sum (h : s.Inv lib) : s.memoryUsageBytes =
    (s.cacheMap.entries.map fun entry => entryBytes lib entry.1 entry.2.result).sum := by
  rw [h.usage, Dict.total]
  refine congrArg _ (List.map_congr_left fun entry hentry => ?_)
  obtain ⟨text, htext, hsize⟩ := h.sizeBytes_eq (AList.mem_lookup_iff.2 hentry)
  rw [hsize, entryBytes, htext]
  rfl

end CacheShard

namespace IPCache

variable {n : ℕ} [NeZero n] (hash : String → ℕ) (lib : JsonLibrary)

/-- The key that an operation on the cache inserts. -/
def inserted (c : IPCache n) (op : CacheOp) : List String :=
  (c (getShardIndex hash op.key)).inserted lib op

/-- The number of entries in all shards. -/
def liveEntries (c : IPCache n) : ℕ := ∑ i, (c i).cacheMap.entries.length

variable {hash lib}

/-- An operation changes one term of a sum over the shards. -/
theorem sum_step (f : CacheShard → ℕ) (c : IPCache n) (op : CacheOp) :
    ∃ rest, ∑ i, f (c i) = f (c (getShardIndex hash op.key)) + rest ∧
      ∑ i, f ((step hash lib c op).2 i) =
        f (CacheShard.step lib (c (getShardIndex hash op.key)) op).2 + rest := by
  refine ⟨_, (Finset.add_sum_erase _ (fun i => f (c i)) (Finset.mem_univ _)).symm, ?_⟩
  rw [← Finset.add_sum_erase _ (fun i => f ((step hash lib c op).2 i)) (Finset.mem_univ _),
    step_shard_self]
  refine congrArg (_ + ·) (Finset.sum_congr rfl fun i hi => ?_)
  rw [step_shard_of_ne hash lib c (Finset.ne_of_mem_erase hi)]

variable (hash lib)

/-- The books are balanced in every state a run reaches. -/
theorem balanced_run (maxMemoryBytes : ℕ) (ops : List CacheOp) :
    let c := (step hash lib).run (new n maxMemoryBytes) ops
    (getStats c).totalLookups = ops.countP CacheOp.isGet ∧
    (getStats c).hits + (getStats c).misses = ops.countP CacheOp.isGet ∧
    (getStats c).expiredEntries ≤ (getStats c).misses ∧
    liveEntries c + (getStats c).evictions + (getStats c).expiredEntries =
      ((step hash lib).emitted (inserted hash lib) (new n maxMemoryBytes) ops).length := by
  induction ops using List.reverseRecOn with
  | nil =>
    have hstats : getStats (new n maxMemoryBytes) = 0 :=
      congrArg TimedMap.stats (toTimedMap_new (n := n) hash maxMemoryBytes)
    have hlive : liveEntries (new n maxMemoryBytes) = 0 := Finset.sum_eq_zero fun i _ => rfl
    simp only [Machine.run_nil, Machine.emitted_nil, hstats, hlive]
    exact ⟨rfl, rfl, le_rfl, rfl⟩
  | append_singleton ops op ih =>
    dsimp only at ih ⊢
    obtain ⟨htotal, hlookups, hexpired, hlive⟩ := ih
    rw [Machine.run_concat, List.countP_append, Machine.emitted_append, List.length_append]
    set c := (step hash lib).run (new n maxMemoryBytes) ops
    have hinv : (c (getShardIndex hash op.key)).Inv lib := inv_run hash lib maxMemoryBytes ops _
    -- the other shards contribute the same before and after
    obtain ⟨rest, hbefore, hafter⟩ := getStats_step hash lib c op
    obtain ⟨others, hcount, hcount'⟩ := sum_step (fun s => s.cacheMap.entries.length) c op
    obtain ⟨htotal', hlookups', hexpired'⟩ := CacheShard.lookups_step hinv op
    have hlive' := CacheShard.live_step hinv op
    have hop : [op].countP CacheOp.isGet = op.isGet.toNat := by
      cases op with
      | get => rfl
      | put => rfl
    have hinserted : ((step hash lib).emitted (inserted hash lib) c [op]).length =
        ((c (getShardIndex hash op.key)).inserted lib op).length := by
      rw [Machine.emitted_cons, Machine.emitted_nil, List.append_nil, inserted]
    rw [hbefore] at htotal hlookups hexpired hlive
    rw [liveEntries, hcount] at hlive
    rw [hafter, hop, hinserted, liveEntries, hcount']
    simp only [CacheStats.add_totalLookups, CacheStats.add_hits, CacheStats.add_misses,
      CacheStats.add_evictions, CacheStats.add_expiredEntries, CacheShard.report]
      at htotal hlookups hexpired hlive ⊢
    refine ⟨?_, ?_, ?_, ?_⟩ <;> omega

/-- In every state a run reaches, the statistics add up: the look-ups are the calls of `get`, each
    a hit or a miss; only misses found something expired; every entry inserted is still there, or
    was evicted, or expired; and the bytes are those of the entries that are there. -/
theorem statistics_conserved (n : ℕ) [NeZero n] (hash : String → ℕ) (lib : JsonLibrary)
    (maxMemoryBytes : ℕ) (ops : List CacheOp) :
    let c := (step hash lib).run (new n maxMemoryBytes) ops
    let stats := getStats c
    stats.totalLookups = ops.countP CacheOp.isGet ∧
    stats.totalLookups = stats.hits + stats.misses ∧
    stats.expiredEntries ≤ stats.misses ∧
    ((step hash lib).emitted (inserted hash lib) (new n maxMemoryBytes) ops).length =
      liveEntries c + stats.evictions + stats.expiredEntries ∧
    stats.memoryUsageBytes = ∑ i, ((c i).cacheMap.entries.map fun entry =>
      CacheShard.entryBytes lib entry.1 entry.2.result).sum := by
  intro c stats
  obtain ⟨htotal, hlookups, hexpired, hlive⟩ := @balanced_run n _ hash lib maxMemoryBytes ops
  refine ⟨htotal, htotal.trans hlookups.symm, hexpired, hlive.symm, ?_⟩
  rw [show stats.memoryUsageBytes = ∑ i, (c i).memoryUsageBytes from
    getStats_memoryUsageBytes hash lib maxMemoryBytes ops]
  exact Finset.sum_congr rfl fun i _ => (inv_run hash lib maxMemoryBytes ops i).usage_eq_sum

theorem statistics_conserved_found :
    let stats := getStats ((step String.length .sample).run (new 16 1000)
      [.put "10.0.0.1" (.string "x") .negative 0, .get "10.0.0.1" (seconds 301)])
    stats.totalLookups = 1 ∧ stats.hits + stats.misses = 1 := by
  obtain ⟨htotal, hsum, -⟩ := statistics_conserved 16 String.length .sample 1000
    [.put "10.0.0.1" (.string "x") .negative 0, .get "10.0.0.1" (seconds 301)]
  exact ⟨htotal, hsum.symm.trans htotal⟩

end IPCache

end IpServer
